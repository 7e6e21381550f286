import TripleQuery.Proofs.Sessions.Collecting
import TripleQuery.Proofs.Sessions.Underway
/-!
# Limited searches — the first matches, and no others

What a search without a source of documents finds is settled when it is
started. So if two sessions search for the same pattern in the same store, the
one with a limit on matches and the other without, and the store is only read
meanwhile, the one caller is told of the first matches that the other is told
of. Unless the limit was reached both are told of the same matches and of the
same end (`Moment.Launches.limited`), whatever their callbacks do otherwise and
whatever else goes on in their sessions.
-/

namespace TripleQuery

/-- A task that carries out no command and no delivery. -/
def Task.isReading : Task → Bool
  | .command _ | .pump _ _ => false
  | _ => true

/-- Such a task leaves the store as it is. -/
theorem Session.exec_graph {s : Session} {task : Task} (h : task.isReading) :
    (s.exec task).1.graph = s.graph := by
  have hcollect : ∀ s' : Session, s'.collect.1.graph = s'.graph := fun s' => by
    unfold collect
    split
    · rfl
    · split <;> rfl
  cases task with
  | order o =>
    cases o with
    | job job => rfl
    | enterSource | leaveSource => rfl
    | request d =>
      simp only [exec, obey, request]
      split <;> rfl
    | watch d n =>
      simp only [exec, obey, watch]
      split
      · rfl
      · split <;> rfl
      · rfl
    | deliver i b =>
      simp only [exec, obey, tell]
      split <;> rfl
    | finish i r =>
      simp only [exec, obey, conclude]
      split <;> rfl
  | call c o => cases c <;> rfl
  | discard c => cases c <;> rfl
  | collected i =>
    simp only [exec, collected]
    split <;> rfl
  | configured =>
    simp only [exec]
    split <;> rfl
  | leave => exact hcollect _
  | leaveLibrary => exact hcollect _
  | command c | pump n announce => cases h
  | acted | reply r | started name i | opened name i => rfl

namespace Moment

variable {m m' w w' : Moment} {config config' : SearchConfig} {p : Pattern}

/-- **A limited search is a prefix of the unlimited one.** Let two sessions with
the same store be about to search for the same pattern without a source of
documents, the second one without a limit, and let them go on while nothing
changes the store. Once the second search is done, the matches that the first
caller was told, at whatever time, are the first ones of those that the second
caller was told. Once both are done, and the first one was not truncated, both
callers were told of the same matches, and of the same end. And each search is
done before its call is over. -/
theorem Launches.limited (h : m.Launches config p) (h' : m'.Launches config' p)
    (hg : m'.session.graph = m.session.graph) (hlimit : config'.maxMatches = none)
    (hrun : Reads m w) (hrun' : Reads m' w') :
    (∀ r', .done m'.upcoming r' ∈ w'.told →
      matchesOf m.upcoming w.told <+: matchesOf m'.upcoming w'.told ∧
      ∀ r, .done m.upcoming r ∈ w.told → (∀ sum, r = .ok sum → sum.truncated = false) →
        matchesOf m.upcoming w.told = matchesOf m'.upcoming w'.told ∧ r = r') ∧
    (w.stack <:+ m.stack.tail → ∃ r, .done m.upcoming r ∈ w.told) ∧
    (w'.stack <:+ m'.stack.tail → ∃ r', .done m'.upcoming r' ∈ w'.told) := by
  obtain ⟨htells, hover⟩ := h.tells hrun
  obtain ⟨htells', hover'⟩ := h'.tells hrun'
  -- one course for both, since the store is the same
  have hcourse : m'.courseOf p = m.courseOf p := by rw [courseOf, courseOf, hg]
  rw [hcourse] at htells'
  refine ⟨fun r' hr' => ⟨?_, fun r hr hcut => ?_⟩, hover, hover'⟩
  · rw [(htells'.ends hr').found_eq hlimit]
    exact htells.found
  · exact (htells.ends hr).unique hcut (htells'.ends hr') hlimit

/-! ## Acquaintances, with a limit and without -/

/-- A session that is about to look for acquaintances and their addresses, with
these settings. -/
def aboutToSearch (config : SearchConfig) : Moment :=
  ⟨.start (.ofList acquaintances) none config, [.command (.searchAll addresses)], []⟩

theorem launches_aboutToSearch (config : SearchConfig) :
    (aboutToSearch config).Launches config addresses where
  reached := ⟨_, none, config, .single (.command (.searchAll addresses))⟩
  engine := rfl
  accepted := ⟨.searchAll addresses, [], rfl, rfl⟩

/-- A run without commands and deliveries only reads the store. -/
theorem reads_carryOut (n : Nat) (m : Moment)
    (h : ∀ k < n, ((carryOut k m).stack.head?.all Task.isReading) = true) :
    Reads m (carryOut n m) := by
  induction n generalizing m with
  | zero => exact .refl
  | succ n ih =>
    obtain ⟨s, stack, told⟩ := m
    cases stack with
    | nil => exact .refl
    | cons task stack =>
      have hfirst : task.isReading := h 0 (Nat.succ_pos n)
      exact .head ⟨.task, Session.exec_graph hfirst⟩
        (ih _ fun k hk => h (k + 1) (Nat.succ_lt_succ hk))

/-- The search when it is done. -/
def searched (config : SearchConfig) : Moment :=
  carryOut 40 (carryOut 1 (aboutToSearch config))

theorem reads_searched {config : SearchConfig}
    (h : ∀ k < 40, ((carryOut k (carryOut 1 (aboutToSearch config))).stack.head?.all
      Task.isReading) = true) : Reads (aboutToSearch config) (searched config) :=
  .head ⟨.task, rfl⟩ (reads_carryOut 40 _ h)

/-- The settings with a limit on matches. -/
def atMost (n : Nat) : SearchConfig :=
  { maxMatches := some n }

/-- What the caller is told without a limit. -/
def bothFound : List Notice :=
  [.started 0 addresses] ++ addressesFound.map (.found 0) ++ [.done 0 (.ok ⟨2, 0, false, false⟩)]

theorem told_searched : (searched {}).told = bothFound ∧ (searched (atMost 3)).told = bothFound ∧
    (searched (atMost 1)).told = [.started 0 addresses] ++
      (addressesFound.take 1).map (.found 0) ++ [.done 0 (.ok ⟨1, 0, true, false⟩)] := by
  refine ⟨?_, ?_, ?_⟩ <;> cbv

/-- With a limit of one match the caller is told of the first acquaintance; with
a limit of three he is told what he is told without one. -/
theorem searched_limited :
    (∀ n, (aboutToSearch (atMost n)).Launches (atMost n) addresses) ∧
    (aboutToSearch {}).Launches {} addresses ∧
    Reads (aboutToSearch {}) (searched {}) ∧ .done 0 (.ok ⟨2, 0, false, false⟩) ∈
      (searched {}).told ∧
    (Reads (aboutToSearch (atMost 1)) (searched (atMost 1)) ∧
      matchesOf 0 (searched (atMost 1)).told <+: matchesOf 0 (searched {}).told) ∧
    (Reads (aboutToSearch (atMost 3)) (searched (atMost 3)) ∧
      ∃ r, .done 0 r ∈ (searched (atMost 3)).told ∧
        matchesOf 0 (searched (atMost 3)).told = matchesOf 0 (searched {}).told ∧
        r = .ok ⟨2, 0, false, false⟩) := by
  obtain ⟨htold, htold', -⟩ := told_searched
  have hall : Reads (aboutToSearch {}) (searched {}) := reads_searched (by decide +kernel)
  have hone : Reads (aboutToSearch (atMost 1)) (searched (atMost 1)) :=
    reads_searched (by decide +kernel)
  have hthree : Reads (aboutToSearch (atMost 3)) (searched (atMost 3)) :=
    reads_searched (by decide +kernel)
  have hdone : .done 0 (.ok ⟨2, 0, false, false⟩) ∈ (searched {}).told := by
    rw [htold]
    simp [bothFound]
  have hdone' : .done 0 (.ok ⟨2, 0, false, false⟩) ∈ (searched (atMost 3)).told := by
    rw [htold']
    simp [bothFound]
  have hlaunch := launches_aboutToSearch
  obtain ⟨hfirst, -⟩ := ((hlaunch (atMost 1)).limited (hlaunch {}) rfl rfl hone hall).1 _ hdone
  obtain ⟨-, hsame⟩ := ((hlaunch (atMost 3)).limited (hlaunch {}) rfl rfl hthree hall).1 _ hdone
  exact ⟨fun n => hlaunch (atMost n), hlaunch {}, hall, hdone, ⟨hone, hfirst⟩, hthree, _, hdone',
    hsame _ hdone' (by rintro sum ⟨⟩; rfl)⟩

end Moment

end TripleQuery
