import TripleQuery.Graph.Lookup
import TripleQuery.Proofs.Merging.Store
/-!
# Finding — which statements stay findable

Adding a statement takes none away from any term. Merging two terms takes whole
buckets to new keys, and a term keeps what it found exactly when its own new
key is the destination of its old one. Both agree as long as no collection was
merged, and then every statement is found under its own terms
(`Reachable.mem_indexFor_iff`).

They part when a collection was merged and an element of it is merged later:
the key of the collection is rebuilt from the new element, which nothing was
ever redirected from, while its statements stay where the first merge took them
(`lost_by_second_merge`).
-/

namespace TripleQuery

namespace Graph

variable {g g' : Graph} {a b keep k t : Term} {p : Position} {s : Statement}

/-- **A statement that all three of its terms find, the store says.** -/
theorem holds_of_mem_indexFor (h : ∀ p, s ∈ g.indexFor p (s.term p)) :
    g.holds s.subject s.predicate s.object := by
  have hsome : (narrowest [g.indexFor .subject s.subject, g.indexFor .predicate s.predicate,
      g.indexFor .object s.object]).isSome := narrowest_isSome
  obtain ⟨n, hn⟩ := Option.isSome_iff_exists.1 hsome
  have hbuckets : g.buckets (tripleFilter s.subject s.predicate s.object) =
      [g.indexFor .subject s.subject, g.indexFor .predicate s.predicate,
        g.indexFor .object s.object] := rfl
  have hsn : s ∈ n := by
    have hmem := narrowest_mem hn
    simp only [List.mem_cons, List.not_mem_nil, or_false] at hmem
    rcases hmem with rfl | rfl | rfl
    · exact h .subject
    · exact h .predicate
    · exact h .object
  have hagrees : g.agrees (tripleFilter s.subject s.predicate s.object) s := by
    have hsame : ∀ t, g.same t t := g.redirections.same_refl
    simp [agrees, Position.all, agreesAt, agreesOnWhy, tripleFilter, ByPosition.get,
      Statement.term, hsame]
  have hmatch : s ∈ g.matching (tripleFilter s.subject s.predicate s.object) := by
    rw [matching, hbuckets, hn]
    exact Array.mem_filter.2 ⟨hsn, hagrees⟩
  rw [holds, Bool.not_eq_true', Array.isEmpty_eq_false_iff]
  exact Array.ne_empty_of_mem hmatch

/-- No index files a statement twice. -/
theorem Orderly.nodup_filed (hg : g.Orderly) (p : Position) : (g.index.get p).filed.Nodup := by
  rw [hg.filed]
  exact hg.nodup

/-- No bucket holds a statement twice. -/
theorem Orderly.nodup_indexFor (hg : g.Orderly) (p : Position) (t : Term) :
    (g.indexFor p t).toList.Nodup := by
  have hfiled := hg.nodup_filed p
  rw [Index.filed_eq_bucket_add _ (g.key t)] at hfiled
  exact Multiset.coe_nodup.1 (Multiset.nodup_of_le (Multiset.le_add_right _ _) hfiled)

/-- Every stored statement is in exactly one bucket of each index. -/
theorem Orderly.existsUnique_bucket (hg : g.Orderly) (hs : s ∈ g.statements) (p : Position) :
    ∃ k, ∀ k', s ∈ (g.index.get p).bucket k' ↔ k' = k := by
  have hfiled : s ∈ (g.index.get p).filed := by rw [hg.filed]; simpa using hs
  obtain ⟨k, hk⟩ := Index.exists_bucket_of_mem_filed hfiled
  refine ⟨k, fun k' => ⟨fun hk' => Index.bucket_unique (hg.nodup_filed p) hk' hk, ?_⟩⟩
  rintro rfl
  exact hk

/-- **A merge leaves a statement with a term exactly when the statement goes
where the key of the term goes.** -/
theorem Orderly.mem_indexFor_equate (hg : g.Orderly) (h : g.equate a b = .ok (g', keep))
    (hs : s ∈ g.indexFor p t) :
    s ∈ g'.indexFor p t ↔ g.destination a b p (g.key t) = g'.key t := by
  rw [indexFor, mem_bucket_equate h]
  constructor
  · rintro ⟨k, hk, hd⟩
    rw [← Index.bucket_unique (hg.nodup_filed p) hk hs, hd]
  · intro hd
    exact ⟨_, hs, hd⟩

/-- Adding a statement takes none away. -/
theorem mem_indexFor_add (s' : Statement) (hs : s ∈ g.indexFor p t) :
    s ∈ (g.add s').indexFor p t := by
  by_cases hs' : s' ∈ g.statements
  · rw [add_of_mem hs']; exact hs
  have hkey : (g.add s').key t = g.key t := by rw [Graph.key, redirections_add, Graph.key]
  rw [indexFor, hkey, index_add hs', Index.bucket_file]
  split
  · rename_i hk
    rw [hk]
    exact Array.mem_push.2 (.inl hs)
  · exact hs

/-- **What stays findable.** An added statement takes none away. A merge keeps
a statement with a term exactly when the bucket of the term goes where its key
goes; where every key is its own key afterwards, this is where the key of what
the old key stands for is the new key. Every stored statement is in one bucket
of each index, and is found by its own term exactly when that is the bucket of
the term. None of this fails, and the store says all it was told, as long as no
collection was merged. -/
theorem Reachable.mem_indexFor_iff (hg : g.Reachable) :
    (∀ s' p t, ∀ s ∈ g.indexFor p t, s ∈ (g.add s').indexFor p t) ∧
    (∀ a b g' keep, g.equate a b = .ok (g', keep) → ∀ p t, ∀ s ∈ g.indexFor p t,
      (s ∈ g'.indexFor p t ↔ g.destination a b p (g.key t) = g'.key t) ∧
      (g'.Settled → (s ∈ g'.indexFor p t ↔ g'.key (g'.canonical (g.key t)) = g'.key t)) ∧
      (g'.redirections.Atomic → s ∈ g'.indexFor p t)) ∧
    (∀ s ∈ g.statements,
      (∀ p, ∃ k, (∀ k', s ∈ (g.index.get p).bucket k' ↔ k' = k) ∧
        (s ∈ g.indexFor p (s.term p) ↔ g.key (s.term p) = k)) ∧
      ((∀ p, s ∈ g.indexFor p (s.term p)) → g.holds s.subject s.predicate s.object) ∧
      (g.redirections.Atomic →
        (∀ p, s ∈ g.indexFor p (s.term p)) ∧ g.holds s.subject s.predicate s.object)) := by
  have ho := hg.orderly
  refine ⟨fun s' p t s hs => mem_indexFor_add s' hs, fun a b g' keep he p t s hs => ?_,
    fun s hs => ?_⟩
  · have hiff := ho.mem_indexFor_equate he hs
    refine ⟨hiff, fun hset => ?_, fun ha => hiff.2 (ho.destination_key he ha hs)⟩
    rw [hiff, ho.destination_eq he hset hs]
  · have hone := ho.existsUnique_bucket hs
    refine ⟨fun p => ?_, holds_of_mem_indexFor, fun ha => ?_⟩
    · obtain ⟨k, hk⟩ := hone p
      exact ⟨k, hk, by rw [indexFor, hk]⟩
    · have hfind : ∀ p, s ∈ g.indexFor p (s.term p) := fun p => by
        obtain ⟨k, hk⟩ := hone p
        rw [indexFor, hk]
        exact hg.key_term_of_mem_bucket ha ((hk k).2 rfl)
      exact ⟨hfind, holds_of_mem_indexFor hfind⟩

/-! ## A statement that is lost -/

/-- A collection stands in a relation to a symbol. -/
def listed : Statement :=
  ⟨.collection [.symbol "b"], .symbol "p", .symbol "o", none⟩

/-- The store that says so, with the collection merged into a symbol. -/
def listedMerged : Graph :=
  (empty.add listed).redirect (.collection [.symbol "b"]) (.symbol "s")

theorem equate_listed :
    (empty.add listed).equate (.collection [.symbol "b"]) (.symbol "s") =
      .ok (listedMerged, .symbol "s") :=
  equate_keeps_right (by cbv) (by cbv) ⟨rfl, rfl⟩ (by decide)
    (by cbv)

theorem equate_listedMerged :
    listedMerged.equate (.symbol "b") (.symbol "a") =
      .ok (listedMerged.redirect (.symbol "b") (.symbol "a"), .symbol "a") :=
  equate_keeps_right (by cbv) (by cbv) ⟨rfl, rfl⟩ (by decide)
    (by cbv)

/-- The condition at work: the collection finds its statement until its element
is merged too, since the key of the collection then parts from its bucket. -/
theorem lost_by_second_merge :
    listed ∈ listedMerged.indexFor .subject listed.subject ∧
      listed ∉ (listedMerged.redirect (.symbol "b") (.symbol "a")).indexFor .subject
        listed.subject := by
  have hr : listedMerged.Reachable := .equate (.add listed .empty) equate_listed
  have hbucket : listedMerged.indexFor .subject listed.subject = #[listed] := by cbv
  have hfound : listed ∈ listedMerged.indexFor .subject listed.subject := by
    rw [hbucket]
    exact Array.mem_singleton.2 rfl
  have hiff := (hr.mem_indexFor_iff.2.1 _ _ _ _ equate_listedMerged .subject listed.subject listed
    hfound).1
  refine ⟨hfound, fun hlost => ?_⟩
  have hne : listedMerged.destination (.symbol "b") (.symbol "a") .subject
      (listedMerged.key listed.subject) ≠
        (listedMerged.redirect (.symbol "b") (.symbol "a")).key listed.subject := by
    decide +kernel
  exact hne (hiff.1 hlost)

/-- **A merge can lose a statement**, also from the store's own answers: what
it was told it no longer says. -/
theorem not_forall_mem_indexFor_equate :
    ¬ ∀ g : Graph, g.Reachable → ∀ a b g' keep, g.equate a b = .ok (g', keep) →
      (∀ p t, ∀ s ∈ g.indexFor p t, s ∈ g'.indexFor p t) ∧
        ∀ s ∈ g'.statements, g'.holds s.subject s.predicate s.object := by
  intro hall
  have hr : listedMerged.Reachable := .equate (.add listed .empty) equate_listed
  have hstored : listed ∈ (listedMerged.redirect (.symbol "b") (.symbol "a")).statements :=
    mem_add.2 (.inr rfl)
  have hsilent : (listedMerged.redirect (.symbol "b") (.symbol "a")).holds listed.subject
      listed.predicate listed.object = false := by cbv
  have hsays := (hall _ hr _ _ _ _ equate_listedMerged).2 listed hstored
  rw [hsilent] at hsays
  exact Bool.false_ne_true hsays

end Graph

end TripleQuery
