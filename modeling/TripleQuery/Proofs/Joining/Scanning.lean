import Mathlib
import TripleQuery.Proofs.Joining.Candidates
import TripleQuery.Proofs.Joining.Unmerged
/-!
# Scanning — an indexed lookup and a look at every statement

As long as no collection is merged, looking in an index finds what looking at
every stored statement would find (`AtomReachable.indexFor_perm_scan`), and so
does a combination of terms and provenance, from whichever of the given
positions it is answered (`AtomReachable.matching_perm_scan`). A triple of a
pattern loses nothing either when it is matched with its candidates only
(`AtomReachable.narrowing_loses_nothing`). Before anything is merged a bucket
also keeps the order of arrival (`Reachable.toList_bucket_of_unmerged`), and so
do both answers.
-/

namespace TripleQuery

namespace Graph

variable {g : Graph} {t w : Term} {p : Position} {s : Statement} {f : StatementFilter}

/-- The stored statements whose term at a position is the same as a given one,
in order of arrival. -/
def scan (g : Graph) (p : Position) (t : Term) : List Statement :=
  g.statements.toList.filter fun s => g.same (s.term p) t

/-- The stored statements that have all that is asked, in order of arrival. -/
def scanAll (g : Graph) (f : StatementFilter) : List Statement :=
  g.statements.toList.filter (g.agrees f)

theorem mem_scan : s ∈ g.scan p t ↔ s ∈ g.statements ∧ g.same (s.term p) t := by
  simp [scan]

/-- What is asked of a statement is that each given term is the same as its own
one at the position, and a given provenance the same as the one it has. -/
theorem agrees_iff :
    g.agrees f s ↔ (∀ p t, f.position.get p = some t → g.same (s.term p) t) ∧
      ∀ w, f.why = some w → ∃ d, s.why = some d ∧ g.same d w := by
  have hpos : ∀ p, g.agreesAt f s p ↔ ∀ t, f.position.get p = some t → g.same (s.term p) t := by
    intro p
    unfold agreesAt
    cases f.position.get p <;> simp
  have hwhy : g.agreesOnWhy f s ↔ ∀ w, f.why = some w → ∃ d, s.why = some d ∧ g.same d w := by
    unfold agreesOnWhy
    cases f.why <;> cases s.why <;> simp
  rw [agrees, Bool.and_eq_true, List.all_eq_true, hwhy]
  refine and_congr_left fun _ => ⟨fun h p => (hpos p).1 (h p p.mem_all), fun h p _ => ?_⟩
  exact (hpos p).2 (h p)

/-! ## As a multiset -/

/-- **A lookup finds what a scan finds.** -/
theorem AtomReachable.indexFor_perm_scan (hg : g.AtomReachable) (p : Position) (t : Term) :
    (g.indexFor p t).toList.Perm (g.scan p t) := by
  have hnodup : (g.scan p t).Nodup := hg.orderly.nodup.filter _
  refine (List.perm_ext_iff_of_nodup (hg.orderly.nodup_indexFor p t) hnodup).2 fun s => ?_
  rw [Array.mem_toList_iff, hg.mem_indexFor, mem_scan]

/-- Of the statements with one of the given terms, those are kept that have all
that is asked. -/
theorem filter_agrees_scan (ht : f.position.get p = some t) :
    (g.scan p t).filter (g.agrees f) = g.scanAll f := by
  unfold scan scanAll
  rw [List.filter_filter]
  refine List.filter_congr fun s _ => ?_
  by_cases hs : g.agrees f s
  · rw [hs, (agrees_iff.1 hs).1 p t ht]
    rfl
  · rw [Bool.not_eq_true] at hs
    rw [hs, Bool.false_and]

/-- **Whichever index is picked**, what is left of its bucket is what a scan
finds. -/
theorem AtomReachable.filter_indexFor_perm_scanAll (hg : g.AtomReachable)
    (ht : f.position.get p = some t) :
    ((g.indexFor p t).toList.filter (g.agrees f)).Perm (g.scanAll f) := by
  rw [← filter_agrees_scan ht]
  exact (hg.indexFor_perm_scan p t).filter _

/-- A combination is answered from all statements, or from the bucket of one of
the given terms. -/
theorem matching_cases (g : Graph) (f : StatementFilter) :
    (g.matching f).toList = g.scanAll f ∨
      ∃ p t, f.position.get p = some t ∧
        (g.matching f).toList = (g.indexFor p t).toList.filter (g.agrees f) := by
  unfold matching
  cases hn : narrowest (g.buckets f) with
  | none =>
    left
    rw [Option.getD_none, Array.toList_filter]
    rfl
  | some n =>
    right
    obtain ⟨p, -, hp⟩ := List.mem_filterMap.1 (narrowest_mem hn)
    obtain ⟨t, ht, rfl⟩ := Option.map_eq_some_iff.1 hp
    exact ⟨p, t, ht, by rw [Option.getD_some, Array.toList_filter]⟩

/-- **A combination of terms and provenance finds what a scan finds.** -/
theorem AtomReachable.matching_perm_scan (hg : g.AtomReachable) (f : StatementFilter) :
    (g.matching f).toList.Perm (g.scanAll f) := by
  rcases g.matching_cases f with hall | ⟨p, t, ht, hone⟩
  · rw [hall]
  · rw [hone]
    exact hg.filter_indexFor_perm_scanAll ht

/-! ## In order of arrival -/

/-- Before anything is merged, adding a statement puts it behind the earlier
ones in its buckets. -/
theorem Unmerged.toList_bucket_add {k : Term} (hu : g.Unmerged) (hs : s ∉ g.statements)
    (hb : ((g.index.get p).bucket k).toList =
      g.statements.toList.filter fun s => s.term p = k) :
    (((g.add s).index.get p).bucket k).toList =
      (g.add s).statements.toList.filter fun s => s.term p = k := by
  rw [index_add hs, Index.bucket_file, statements_add, if_neg hs, hu.key_eq, Array.toList_push,
    List.filter_append, ← hb]
  by_cases hk : s.term p = k
  · rw [if_pos hk, hk, Array.toList_push]
    simp [hk]
  · rw [if_neg hk]
    simp [hk]

/-- **A bucket keeps the order of arrival** as long as nothing is merged. -/
theorem Reachable.toList_bucket_of_unmerged (hg : g.Reachable) (hu : g.Unmerged) (p : Position)
    (k : Term) :
    ((g.index.get p).bucket k).toList = g.statements.toList.filter fun s => s.term p = k := by
  induction hg with
  | empty => simp [Graph.empty]
  | @add g s _ ih =>
    have hug : g.Unmerged := (redirections_add g s).symm.trans hu
    by_cases hs : s ∈ g.statements
    · rw [add_of_mem hs]
      exact ih hug
    · exact hug.toList_bucket_add hs (ih hug)
  | @equate g g' a b keep _ he ih =>
    -- only a merge of two terms with one key leaves everything unmerged
    rcases equate_cases he with ⟨-, rfl, -⟩ | ⟨-, lose, rfl, -⟩
    · exact ih hu
    · exact absurd hu (List.cons_ne_nil _ _)

/-- A lookup then finds its statements in the order of a scan. -/
theorem Reachable.indexFor_eq_scan (hg : g.Reachable) (hu : g.Unmerged) (p : Position)
    (t : Term) : (g.indexFor p t).toList = g.scan p t := by
  rw [indexFor, hg.toList_bucket_of_unmerged hu, scan, hu.key_eq]
  refine List.filter_congr fun s _ => ?_
  rw [← Bool.coe_iff_coe, decide_eq_true_iff, hu.same_iff]

/-- And so does a combination. -/
theorem Reachable.matching_eq_scan (hg : g.Reachable) (hu : g.Unmerged) (f : StatementFilter) :
    (g.matching f).toList = g.scanAll f := by
  rcases g.matching_cases f with hall | ⟨p, t, ht, hone⟩
  · exact hall
  · rw [hone, hg.indexFor_eq_scan hu, filter_agrees_scan ht]

/-- **Indexed lookups agree with scans.** However a store came about by adding
statements and merging terms other than collections, a lookup at one position
finds each stored statement whose term is the same as the asked one, and a
combination each stored statement that has all that is asked, as it would from
the bucket of any given position. As long as nothing was merged, the answers
are in order of arrival. -/
theorem AtomReachable.lookups_agree_with_scans (hg : g.AtomReachable) :
    (∀ p t, (g.indexFor p t).toList.Perm
      (g.statements.toList.filter fun s => g.same (s.term p) t)) ∧
    (∀ f, (g.matching f).toList.Perm (g.statements.toList.filter (g.agrees f)) ∧
      (∀ p t, f.position.get p = some t → (g.matching f).toList.Perm
        ((g.indexFor p t).toList.filter (g.agrees f))) ∧
      ∀ s, g.agrees f s ↔ (∀ p t, f.position.get p = some t → g.same (s.term p) t) ∧
        ∀ w, f.why = some w → ∃ d, s.why = some d ∧ g.same d w) ∧
    (g.Unmerged →
      (∀ p t, (g.indexFor p t).toList =
        g.statements.toList.filter fun s => g.same (s.term p) t) ∧
      ∀ f, (g.matching f).toList = g.statements.toList.filter (g.agrees f)) := by
  refine ⟨hg.indexFor_perm_scan, fun f => ⟨hg.matching_perm_scan f, fun p t ht => ?_,
    fun s => agrees_iff⟩, fun hu => ⟨hg.reachable.indexFor_eq_scan hu,
    hg.reachable.matching_eq_scan hu⟩⟩
  exact (hg.matching_perm_scan f).trans (hg.filter_indexFor_perm_scanAll ht).symm

/-! ## Nested collections -/

/-- The collection that holds a collection of one symbol. -/
def nestedIn (iri : String) : Term :=
  .collection [.collection [.symbol iri]]

/-- Two statements about nested collections, the second of them from a document. -/
def nestedStatements : List Statement :=
  [⟨nestedIn "b", .symbol "p", .symbol "o", none⟩,
    ⟨nestedIn "a", .symbol "p", .symbol "o", some (.symbol "d")⟩]

/-- The store of both, in which the two innermost symbols are merged. -/
def nestedMerged : Graph :=
  (ofList nestedStatements).redirect (.symbol "b") (.symbol "a")

theorem equate_nested :
    (ofList nestedStatements).equate (.symbol "b") (.symbol "a") =
      .ok (nestedMerged, .symbol "a") :=
  equate_keeps_right (by cbv) (by cbv) ⟨rfl, rfl⟩ (by decide)
    (by cbv)

/-- The scans at work: either nested collection finds both statements once the
innermost symbols are merged, the provenance singles out one of them, and
before the merge the first statement comes first. -/
theorem nested_found :
    (nestedMerged.indexFor .subject (nestedIn "b")).toList.Perm nestedStatements ∧
      (nestedMerged.matching ⟨⟨some (nestedIn "b"), some (.symbol "p"), none⟩,
        some (.symbol "d")⟩).toList.Perm (nestedStatements.drop 1) ∧
      ((ofList nestedStatements).indexFor .predicate (.symbol "p")).toList = nestedStatements := by
  have hplain : (ofList nestedStatements).AtomReachable := atomReachable_ofList _
  have hmerged : nestedMerged.AtomReachable := .equate hplain rfl rfl equate_nested
  have hfound := hmerged.lookups_agree_with_scans
  have hordered := hplain.lookups_agree_with_scans.2.2 (unmerged_ofList _)
  refine ⟨(hfound.1 .subject (nestedIn "b")).trans (.of_eq ?_),
    (hfound.2.1 _).1.trans (.of_eq ?_), (hordered.1 .predicate (.symbol "p")).trans ?_⟩
  · cbv
  · cbv
  · cbv

/-! ## Triples with variables -/

/-- **Narrowing loses nothing.** However a store came about by adding statements
and merging terms other than collections, and whatever values variables and
blank nodes have: the candidates of a triple are stored statements, no more than
the index has for any bound position. Each stored statement that the triple
unifies with is among them, exactly once. If it meets no mismatch with any
stored statement, its alternatives are those of a look at every statement, each
as often. And if nothing is planned though some triples remain, one of these
unifies with no stored statement. -/
theorem AtomReachable.narrowing_loses_nothing (hg : g.AtomReachable) {b : Bindings}
    (hb : b.OnVariables) :
    (∀ triple : Statement,
      (∀ s ∈ (g.prepare b triple).candidates, s ∈ g.statements) ∧
      (∀ p, b.hasUnbound (triple.term p) = false → (g.prepare b triple).candidates.size ≤
        (g.indexFor p (b.substitute (triple.term p))).size) ∧
      (∀ s ∈ g.statements, ∀ found, g.unifyStatement b triple s = .ok found → found ≠ [] →
        (g.prepare b triple).candidates.toList.count s = 1) ∧
      ((∀ s ∈ g.statements, ∀ xs y,
          g.unifyStatement b triple s ≠ .error (.shapeMismatch xs y)) →
        ∃ narrowed scanned,
          Frame.alternatives g b triple (g.prepare b triple).candidates.toList = .ok narrowed ∧
          Frame.alternatives g b triple g.statements.toList = .ok scanned ∧
          narrowed.Perm scanned)) ∧
    ∀ remaining : List Statement, remaining ≠ [] → g.plan b remaining = none →
      ∃ triple ∈ remaining, ∀ s ∈ g.statements, ∀ found,
        g.unifyStatement b triple s = .ok found → found = [] := by
  refine ⟨fun triple => ⟨fun s hs => hg.orderly.mem_statements_of_mem_candidates hs,
    fun p hp => g.size_candidates_le hp,
    fun s hs found h hne => hg.count_candidates hb hs h hne,
    fun h => hg.alternatives_perm_scan hb h⟩, fun remaining hne hp => ?_⟩
  exact hg.exists_unmatched_of_plan_eq_none hb hne hp

/-- The store of both nested collections with a third one, whose symbol is
merged with none. -/
def nestedMore : Graph :=
  nestedMerged.add ⟨nestedIn "c", .symbol "p", .symbol "o", none⟩

/-- A triple with a variable in a nested collection. -/
def nestedAsked : Statement :=
  ⟨.collection [.collection [.var "x"]], .var "q", .symbol "o", none⟩

/-- The variable has one of the merged symbols as its value. -/
def nestedBound : Bindings :=
  Bindings.ofPairs [(.var "x", .symbol "b")]

/-- The triple is matched with two of three statements, those that it unifies
with. No statement has the value of the variable itself as its subject, and a
pattern that asks for one as well has no plan. -/
theorem nested_narrowed :
    (nestedMore.prepare nestedBound nestedAsked).candidates.size = 2 ∧
    nestedMore.statements.size = 3 ∧
    (∀ s ∈ nestedStatements,
      (nestedMore.prepare nestedBound nestedAsked).candidates.toList.count s = 1) ∧
    (∃ narrowed scanned,
      Frame.alternatives nestedMore nestedBound nestedAsked
        (nestedMore.prepare nestedBound nestedAsked).candidates.toList = .ok narrowed ∧
      Frame.alternatives nestedMore nestedBound nestedAsked nestedMore.statements.toList =
        .ok scanned ∧
      narrowed.Perm scanned) ∧
    ∃ triple ∈ [nestedAsked, ⟨.var "x", .var "q", .symbol "o", none⟩],
      ∀ s ∈ nestedMore.statements, ∀ found,
        nestedMore.unifyStatement nestedBound triple s = .ok found → found = [] := by
  have hmerged : nestedMerged.AtomReachable :=
    .equate (atomReachable_ofList _) rfl rfl equate_nested
  have hmore : nestedMore.AtomReachable := .add _ hmerged
  have hbound : nestedBound.OnVariables := Bindings.onVariables_empty.bind rfl _
  have hnarrow := hmore.narrowing_loses_nothing hbound
  obtain ⟨-, -, honce, halternatives⟩ := hnarrow.1 nestedAsked
  have hstored : ∀ s ∈ nestedStatements, s ∈ nestedMore.statements := by decide +kernel
  have hunify : ∀ s ∈ nestedStatements, nestedMore.unifyStatement nestedBound nestedAsked s =
      .ok [nestedBound.bind (.var "q") (.symbol "p")] := by
    intro s hs
    simp only [nestedStatements, List.mem_cons, List.not_mem_nil, or_false] at hs
    rcases hs with rfl | rfl <;> cbv
  have hfine : ∀ s ∈ nestedMore.statements,
      (nestedMore.unifyStatement nestedBound nestedAsked s).isOk := by decide +kernel
  refine ⟨by decide +kernel, by decide +kernel,
    fun s hs => honce s (hstored s hs) _ (hunify s hs) (List.cons_ne_nil _ _),
    halternatives fun s hs xs y he => ?_, hnarrow.2 _ (List.cons_ne_nil _ _) ?_⟩
  · have hok := hfine s hs
    rw [he] at hok
    cases hok
  · exact Option.isNone_iff_eq_none.1 (by decide +kernel)

end Graph

end TripleQuery
