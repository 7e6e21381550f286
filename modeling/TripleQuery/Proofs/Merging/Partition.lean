import TripleQuery.Proofs.Merging.Finding
/-!
# Partitions — every statement in one bucket, in any order of moves

After a merge the buckets of stale collection keys move one by one. The
present key of one stale key can itself be stale, so where a statement ends up
depends on which bucket moves first (`index_crossedMerge`). That each index
stays a partition of the stored statements does not: a move takes a bucket
away as a whole and puts all of it behind another (`Index.filed_moveAll`).

A store is `Attainable` when adding and merging can lead to it, whatever the
order of the moves in each index at each merge. Keeping to the order of the
keys is one way (`Reachable.attainable`).
-/

namespace TripleQuery

/-- An index is a partition of statements. -/
structure Index.Partitions (ix : Index) (ss : Array Statement) : Prop where
  /-- Every statement is in one bucket. -/
  one : ∀ s ∈ ss, ∃! k, s ∈ ix.bucket k
  /-- What is in a bucket is there once. -/
  once : ∀ k, ∀ s ∈ ix.bucket k, (ix.bucket k).toList.count s = 1
  /-- Buckets hold nothing else. -/
  only : ∀ k, ∀ s ∈ ix.bucket k, s ∈ ss

namespace Graph

variable {g g' : Graph} {a b keep lose : Term}

/-- What merging two terms can leave. -/
inductive MergesTo (g : Graph) (a b keep : Term) : Graph → Prop
  /-- The terms had one key already. -/
  | same : g.equate a b = .ok (g, keep) → MergesTo g a b keep g
  /-- One key was redirected to the other, and in each index the buckets of the
  stale keys moved in some order. -/
  | redirected {lose : Term} {order : ByPosition (List Term)} :
      g.equate a b = .ok (g.redirect lose keep, keep) →
      (∀ p, (order.get p).Perm (g.staleKeys lose keep p)) →
      MergesTo g a b keep (g.redirectIn order lose keep)

/-- A store that adding statements and merging terms can lead to, in whatever
order buckets move. -/
inductive Attainable : Graph → Prop
  /-- Nothing was stored yet. -/
  | empty : Attainable .empty
  /-- A statement was added. -/
  | add {g : Graph} (s : Statement) : Attainable g → Attainable (g.add s)
  /-- Two terms were merged. -/
  | merge {g g' : Graph} {a b keep : Term} :
      Attainable g → g.MergesTo a b keep g' → Attainable g'

/-- Moving stale buckets in the order of their keys is one way to merge. -/
theorem mergesTo_of_equate (h : g.equate a b = .ok (g', keep)) : g.MergesTo a b keep g' := by
  rcases equate_cases h with ⟨-, rfl, -⟩ | ⟨-, lose, rfl, -, -⟩
  · exact .same h
  · have hm : g.MergesTo a b keep (g.redirectIn (.ofFn (g.staleKeys lose keep)) lose keep) :=
      .redirected h fun p => by rw [ByPosition.get_ofFn]
    rwa [redirectIn_staleKeys] at hm

theorem Reachable.attainable (h : g.Reachable) : g.Attainable := by
  induction h with
  | empty => exact .empty
  | add s _ ih => exact .add s ih
  | equate _ he ih => exact .merge ih (mergesTo_of_equate he)

/-- A merge stores nothing and removes nothing. -/
theorem MergesTo.statements_eq (h : g.MergesTo a b keep g') : g'.statements = g.statements := by
  cases h with
  | same _ => rfl
  | redirected _ _ => rfl

/-- **A merge files what was filed**, in whatever order buckets move. -/
theorem MergesTo.filed_eq (h : g.MergesTo a b keep g') (p : Position) :
    (g'.index.get p).filed = (g.index.get p).filed := by
  cases h with
  | same _ => rfl
  | redirected _ _ => rw [index_redirectIn, Index.filed_moveAll, Index.filed_move]

/-- **A merge keeps a store orderly**, in whatever order buckets move. -/
theorem Orderly.mergesTo (hg : g.Orderly) (h : g.MergesTo a b keep g') : g'.Orderly := by
  cases h with
  | same _ => exact hg
  | @redirected lose order he horder =>
    have hkey : ∀ t, g.canonical (g.key t) = g.key t := Redirections.canonical_key hg.recorded
    have hstale : ∀ p, ∀ k ∈ order.get p, k ∈ g.staleKeys lose keep p := fun p k hk =>
      (horder p).mem_iff.1 hk
    rcases equate_cases he with ⟨-, hg', -⟩ | ⟨hne, lose', hg', -, hkeys⟩
    · -- a redirection is a change
      have hgen : g.generation + 1 = g.generation := congrArg Graph.generation hg'
      omega
    · obtain rfl : lose = lose' := by
        have hrs := congrArg Graph.redirections hg'
        simp only [redirections_redirect] at hrs
        exact (Prod.mk.inj (List.cons.inj hrs).1).1
      rcases hkeys with ⟨rfl, rfl⟩ | ⟨rfl, rfl⟩
      · exact hg.redirectIn hstale (hkey a) (hkey b) hne
      · exact hg.redirectIn hstale (hkey b) (hkey a) hne.symm

/-- Every attainable store is orderly. -/
theorem Attainable.orderly (h : g.Attainable) : g.Orderly := by
  induction h with
  | empty => exact orderly_empty
  | add s _ ih => exact ih.add s
  | merge _ hm ih => exact ih.mergesTo hm

/-- **The indices of an orderly store are partitions of what it stores.** -/
theorem Orderly.index_partitions (hg : g.Orderly) (p : Position) :
    (g.index.get p).Partitions g.statements where
  one s hs := by
    obtain ⟨k, hk⟩ := hg.existsUnique_bucket hs p
    exact ⟨k, (hk k).2 rfl, fun k' hk' => (hk k').1 hk'⟩
  once k s hs := by
    have hfiled := hg.nodup_filed p
    rw [Index.filed_eq_bucket_add _ k] at hfiled
    have hbucket : ((g.index.get p).bucket k).toList.Nodup :=
      Multiset.coe_nodup.1 (Multiset.nodup_of_le (Multiset.le_add_right _ _) hfiled)
    exact List.count_eq_one_of_mem hbucket (by simpa using hs)
  only k s hs := by
    have hfiled := Index.mem_filed_of_mem_bucket hs
    rw [hg.filed] at hfiled
    simpa using hfiled

/-- Adding files a new statement once in each index, and a known one not at all. -/
theorem filed_add (g : Graph) (s : Statement) (p : Position) :
    ((g.add s).index.get p).filed =
      if s ∈ g.statements then (g.index.get p).filed else s ::ₘ (g.index.get p).filed := by
  split
  · rename_i hs
    rw [add_of_mem hs]
  · rename_i hs
    rw [index_add hs, Index.filed_file]

/-- **Each index is a partition of the store.** Every stored statement is in
exactly one bucket of each index and once in it, and buckets hold nothing else.
Adding files a new statement once. Merging neither loses nor doubles what is
filed, also while buckets still move: after any moves, of whichever buckets in
whatever order, an index files what it filed before. -/
theorem Attainable.partitions (hg : g.Attainable) :
    (∀ p, (g.index.get p).Partitions g.statements ∧
      (g.index.get p).filed = (g.statements.toList : Multiset Statement)) ∧
    (∀ s p, ((g.add s).index.get p).filed =
      if s ∈ g.statements then (g.index.get p).filed else s ::ₘ (g.index.get p).filed) ∧
    (∀ a b keep g', g.MergesTo a b keep g' → g'.statements = g.statements ∧
      ∀ p, (g'.index.get p).filed = (g.index.get p).filed) ∧
    ∀ lose keep p ks, (((g.index.get p).move lose keep).moveAll
      ((lose, keep) :: g.redirections) ks).filed = (g.index.get p).filed := by
  have ho := hg.orderly
  refine ⟨fun p => ⟨ho.index_partitions p, ho.filed p⟩, filed_add g, fun a b keep g' hm => ?_,
    fun lose keep p ks => ?_⟩
  · exact ⟨hm.statements_eq, hm.filed_eq⟩
  · rw [Index.filed_moveAll, Index.filed_move]

/-! ## A bucket that moves to where another moves from -/

/-- A collection of one symbol. -/
def single (name : String) : Term :=
  .collection [.symbol name]

/-- A statement about a collection of one symbol. -/
def aboutOne (name object : String) : Statement :=
  ⟨single name, .symbol "p", .symbol object, none⟩

/-- A collection is merged with another. -/
def paired : Graph :=
  empty.redirect (single "c") (single "a")

/-- Then the element of the other is merged with a symbol. What is now said
about the first collection is filed under the second, which is no key of its own
any more. -/
def crossed : Graph :=
  ((paired.redirect (.symbol "a") (.symbol "0")).add (aboutOne "c" "o")).add (aboutOne "d" "u")

/-- Then the elements of the first collection and of a third are merged. What is
said about the third moves under the second, whose own bucket moves on. -/
def crossedMerge (ks : List Term) : Graph :=
  crossed.redirectIn ⟨ks, [], []⟩ (.symbol "d") (.symbol "c")

theorem attainable_crossed : crossed.Attainable := by
  have hpaired : paired.Reachable := .equate .empty
    (equate_keeps_right (a := single "c") (b := single "a")
      (by cbv) (by cbv) ⟨rfl, rfl⟩ (by decide) (by cbv))
  have hnamed : (paired.redirect (.symbol "a") (.symbol "0")).Reachable := .equate hpaired
    (equate_keeps_right (a := .symbol "a") (b := .symbol "0")
      (by cbv) (by cbv) ⟨rfl, rfl⟩ (by decide) (by cbv))
  exact (Reachable.add _ (.add _ hnamed)).attainable

/-- The stale keys move in either order. -/
theorem attainable_crossedMerge {ks : List Term}
    (h : ks.Perm [single "a", single "d"]) :
    (crossedMerge ks).Attainable := by
  have hmerge : crossed.equate (.symbol "d") (.symbol "c") =
      .ok (crossed.redirect (.symbol "d") (.symbol "c"), .symbol "c") :=
    equate_keeps_right (by cbv) (by cbv) ⟨rfl, rfl⟩ (by decide)
      (by cbv)
  have hstale : crossed.staleKeys (.symbol "d") (.symbol "c") =
      ByPosition.get ⟨[single "a", single "d"], [], []⟩ := by
    funext p
    cases p <;> cbv
  refine .merge attainable_crossed (.redirected hmerge fun p => ?_)
  rw [hstale]
  cases p with
  | subject => exact h
  | predicate | object => exact .refl _

theorem statements_crossedMerge (ks : List Term) :
    (crossedMerge ks).statements = #[aboutOne "c" "o", aboutOne "d" "u"] := by
  change crossed.statements = _
  cbv

/-- The order of the moves at work: it decides what is filed under the
collection of the first symbol, and neither order loses or doubles anything. -/
theorem index_crossedMerge :
    ((crossedMerge [single "a", single "d"]).index.subject.bucket (single "0") =
        #[aboutOne "c" "o"] ∧
      (crossedMerge [single "a", single "d"]).index.subject.Partitions
        #[aboutOne "c" "o", aboutOne "d" "u"]) ∧
    (crossedMerge [single "d", single "a"]).index.subject.bucket (single "0") =
        #[aboutOne "c" "o", aboutOne "d" "u"] ∧
      (crossedMerge [single "d", single "a"]).index.subject.Partitions
        #[aboutOne "c" "o", aboutOne "d" "u"] := by
  have hinOrder := attainable_crossedMerge (.refl [single "a", single "d"])
  have hreversed := attainable_crossedMerge (.swap (single "a") (single "d") [])
  refine ⟨⟨by cbv, ?_⟩, by cbv, ?_⟩
  · rw [← statements_crossedMerge]
    exact (hinOrder.partitions.1 .subject).1
  · rw [← statements_crossedMerge]
    exact (hreversed.partitions.1 .subject).1

end Graph

end TripleQuery
