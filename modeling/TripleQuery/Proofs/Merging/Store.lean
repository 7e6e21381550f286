import TripleQuery.Graph.Merge
import TripleQuery.Proofs.Merging.Filing
/-!
# Stores — what adding and merging lead to

A store is `Reachable` when it came about by adding statements and merging
terms, whatever the terms. Such a store is `Orderly`: its redirections were
made between terms that stood for themselves, every key in use stands for
itself, and each index files each statement of the store exactly once.

Where no collection was ever merged, every statement is filed under the key of
its term (`key_term_of_mem_bucket`).
-/

namespace TripleQuery

namespace Graph

variable {g g' : Graph} {a b keep source target k t : Term} {p : Position} {s : Statement}

/-- A store that adding statements and merging terms lead to. -/
inductive Reachable : Graph → Prop
  /-- Nothing was stored yet. -/
  | empty : Reachable .empty
  /-- A statement was added. -/
  | add {g : Graph} (s : Statement) : Reachable g → Reachable (g.add s)
  /-- Two terms were merged. -/
  | equate {g g' : Graph} {a b keep : Term} :
      Reachable g → g.equate a b = .ok (g', keep) → Reachable g'

theorem Reachable.addAll {g : Graph} (h : g.Reachable) (ss : List Statement) :
    (g.addAll ss).Reachable := by
  induction ss generalizing g with
  | nil => exact h
  | cons s ss ih => exact ih (.add s h)

theorem reachable_ofList (ss : List Statement) : (ofList ss).Reachable :=
  Reachable.addAll .empty ss

/-- What holds of every store that came about by adding and merging. -/
structure Orderly (g : Graph) : Prop where
  /-- Redirections were made between terms that stood for themselves. -/
  recorded : g.redirections.Recorded
  /-- No statement is stored twice. -/
  nodup : g.statements.toList.Nodup
  /-- Each index files each statement once. -/
  filed : ∀ p, (g.index.get p).filed = (g.statements.toList : Multiset Statement)
  /-- A key in use stands for itself. -/
  canonical_eq : ∀ {p k s}, s ∈ (g.index.get p).bucket k → g.canonical k = k

/-- **What a merge does**: nothing, or one key is redirected to the other. -/
theorem equate_cases (h : g.equate a b = .ok (g', keep)) :
    (g.key a = g.key b ∧ g' = g ∧ keep = g.key a) ∨
      (g.key a ≠ g.key b ∧ ∃ lose, g' = g.redirect lose keep ∧
        (g.key a).isPreferred (g.key b) = decide (keep = g.key a) ∧
        (lose = g.key a ∧ keep = g.key b ∨ lose = g.key b ∧ keep = g.key a)) := by
  simp only [equate] at h
  split at h
  · simp at h
  split at h
  · simp at h
  split at h
  · rename_i hk
    obtain ⟨rfl, rfl⟩ := Prod.mk.inj (Except.ok.inj h)
    exact .inl ⟨hk, rfl, rfl⟩
  rename_i hk
  split at h <;> rename_i hp <;> obtain ⟨rfl, rfl⟩ := Prod.mk.inj (Except.ok.inj h)
  · exact .inr ⟨hk, _, rfl, by simp [hp], .inr ⟨rfl, rfl⟩⟩
  · exact .inr ⟨hk, _, rfl, by simp [hp, Ne.symm hk], .inl ⟨rfl, rfl⟩⟩

/-- Merging keeps the key of the first term when it is preferred. -/
theorem equate_keeps_left {lose : Term} (ha : g.key a = keep) (hb : g.key b = lose)
    (hv : keep.isNamedVariable = false ∧ lose.isNamedVariable = false) (hne : keep ≠ lose)
    (hp : keep.isPreferred lose) : g.equate a b = .ok (g.redirect lose keep, keep) := by
  simp [equate, ha, hb, hv, hne, hp]

/-- And the key of the second when the first is not. -/
theorem equate_keeps_right {lose : Term} (ha : g.key a = lose) (hb : g.key b = keep)
    (hv : lose.isNamedVariable = false ∧ keep.isNamedVariable = false) (hne : lose ≠ keep)
    (hp : lose.isPreferred keep = false) : g.equate a b = .ok (g.redirect lose keep, keep) := by
  simp [equate, ha, hb, hv, hne, hp]

/-- Nothing is filed in the empty store. -/
@[simp] theorem index_empty (p : Position) : Graph.empty.index.get p = ∅ := by
  simp [Graph.empty]

theorem orderly_empty : Graph.empty.Orderly where
  recorded := trivial
  nodup := by simp [Graph.empty]
  filed p := by rw [index_empty]; simp [Graph.empty]
  canonical_eq h := by simp [index_empty] at h

/-- Adding files the statement under the keys of its terms. -/
theorem index_add (h : s ∉ g.statements) (p : Position) :
    (g.add s).index.get p = (g.index.get p).file (g.key (s.term p)) s := by
  simp [add, contains, h]

/-- **Adding keeps a store orderly.** -/
theorem Orderly.add (hg : g.Orderly) (s : Statement) : (g.add s).Orderly := by
  by_cases hs : s ∈ g.statements
  · rw [add_of_mem hs]; exact hg
  have hst : (g.add s).statements = g.statements.push s := by
    rw [statements_add, if_neg hs]
  refine ⟨by rw [redirections_add]; exact hg.recorded, ?_, fun p => ?_, fun {p k s'} hb => ?_⟩
  · rw [hst, Array.toList_push, List.nodup_append_comm]
    exact List.nodup_cons.2 ⟨by simpa using hs, hg.nodup⟩
  · rw [index_add hs, Index.filed_file, hg.filed, hst, Array.toList_push, ← Multiset.coe_add,
      Multiset.coe_singleton, add_comm, Multiset.singleton_add]
  · rw [index_add hs, Index.bucket_file] at hb
    rw [Graph.canonical, redirections_add]
    split at hb
    · rename_i hk
      rw [← hk]
      exact Redirections.canonical_key hg.recorded _
    · exact hg.canonical_eq hb

/-- The index once a key was redirected. -/
theorem index_redirect (g : Graph) (source target : Term) (p : Position) :
    (g.redirect source target).index.get p =
      ((g.index.get p).move source target).rekey ((source, target) :: g.redirections) := by
  simp [redirect]

/-- Once a key is redirected, what a key in use stands for is the place its
bucket moved to. -/
theorem Orderly.canonical_redirect (hg : g.Orderly) (hs : s ∈ (g.index.get p).bucket k) :
    (g.redirect source target).canonical k = if k = source then target else k := by
  rw [Graph.canonical, redirections_redirect, Redirections.canonical_cons]
  change (if g.canonical k = source then target else g.canonical k) = _
  rw [hg.canonical_eq hs]

/-- Wherever a bucket moves, its key stands for itself when the one it started
from does. -/
theorem canonical_follow {rs : Redirections} (hr : rs.Recorded) (ks : List Term)
    (hk : rs.canonical k = k) : rs.canonical (Index.follow rs ks k) = Index.follow rs ks k := by
  unfold Index.follow
  induction ks generalizing k with
  | nil => exact hk
  | cons k' ks ih =>
    rw [List.foldl_cons]
    refine ih ?_
    split
    · exact Redirections.canonical_key hr k'
    · exact hk

/-- The stale keys of an index, once one key is redirected to another. -/
def staleKeys (g : Graph) (source target : Term) (p : Position) : List Term :=
  ((g.index.get p).move source target).staleKeys ((source, target) :: g.redirections)

/-- Redirect one key to another, and move the buckets of some keys in a given
order. -/
def redirectIn (g : Graph) (order : ByPosition (List Term)) (source target : Term) : Graph :=
  { g.redirect source target with
    index := .ofFn fun p => ((g.index.get p).move source target).moveAll
      ((source, target) :: g.redirections) (order.get p) }

/-- A redirection moves the buckets of the stale keys in the order of their
keys. -/
theorem redirectIn_staleKeys (g : Graph) (source target : Term) :
    g.redirectIn (.ofFn (g.staleKeys source target)) source target = g.redirect source target := by
  simp [redirectIn, redirect, staleKeys, Index.rekey, Index.moveAll]

theorem index_redirectIn (g : Graph) (order : ByPosition (List Term)) (source target : Term)
    (p : Position) :
    (g.redirectIn order source target).index.get p =
      ((g.index.get p).move source target).moveAll ((source, target) :: g.redirections)
        (order.get p) := by
  simp [redirectIn]

/-- **Redirecting one key to another keeps a store orderly**, in whatever order
the stale buckets move. -/
theorem Orderly.redirectIn (hg : g.Orderly) {order : ByPosition (List Term)}
    (horder : ∀ p, ∀ k ∈ order.get p, k ∈ g.staleKeys source target p)
    (hs : g.canonical source = source) (ht : g.canonical target = target) (hne : source ≠ target) :
    (g.redirectIn order source target).Orderly := by
  have hr : Redirections.Recorded ((source, target) :: g.redirections) :=
    ⟨hs, ht, hne, hg.recorded⟩
  refine ⟨hr, hg.nodup, fun p => ?_, fun {p k s} hb => ?_⟩
  · rw [index_redirectIn, Index.filed_moveAll, Index.filed_move, hg.filed]
    rfl
  · rw [index_redirectIn,
      Index.mem_bucket_moveAll _ fun k hk => Index.ne_key_of_mem_staleKeys (horder p k hk)] at hb
    obtain ⟨k', hb, rfl⟩ := hb
    obtain ⟨k, hk, rfl⟩ := (Index.mem_bucket_move _ hne).1 hb
    refine canonical_follow hr _ ?_
    -- the bucket was moved to what its key stands for
    rw [← hg.canonical_redirect hk]
    exact Redirections.canonical_canonical hr k

/-- **Redirecting one key to another keeps a store orderly.** -/
theorem Orderly.redirect (hg : g.Orderly) (hs : g.canonical source = source)
    (ht : g.canonical target = target) (hne : source ≠ target) :
    (g.redirect source target).Orderly := by
  rw [← redirectIn_staleKeys]
  refine hg.redirectIn (fun p k hk => ?_) hs ht hne
  simpa using hk

/-- **Merging keeps a store orderly.** -/
theorem Orderly.equate (hg : g.Orderly) (h : g.equate a b = .ok (g', keep)) : g'.Orderly := by
  have hkey : ∀ t, g.canonical (g.key t) = g.key t :=
    Redirections.canonical_key hg.recorded
  rcases equate_cases h with ⟨-, rfl, -⟩ | ⟨hne, lose, rfl, -, ⟨rfl, rfl⟩ | ⟨rfl, rfl⟩⟩
  · exact hg
  · exact hg.redirect (hkey a) (hkey b) hne
  · exact hg.redirect (hkey b) (hkey a) hne.symm

/-- **A store that came about by adding and merging is orderly.** -/
theorem Reachable.orderly (h : g.Reachable) : g.Orderly := by
  induction h with
  | empty => exact orderly_empty
  | add s _ ih => exact ih.add s
  | equate _ he ih => exact ih.equate he

/-! ## Where a merge takes what is filed -/

/-- Every key is its own key. -/
def Settled (g : Graph) : Prop :=
  ∀ t, g.key (g.key t) = g.key t

/-- The key under which a store keeps what it has filed under a key, once one
key is redirected to another. -/
def redirected (g : Graph) (source target : Term) (p : Position) (k : Term) : Term :=
  ((g.index.get p).move source target).destination ((source, target) :: g.redirections)
    (if k = source then target else k)

/-- The key under which a store keeps what it has filed under a key, once two
terms are merged. -/
def destination (g : Graph) (a b : Term) (p : Position) (k : Term) : Term :=
  if g.key a = g.key b then k
  else if (g.key a).isPreferred (g.key b) then g.redirected (g.key b) (g.key a) p k
  else g.redirected (g.key a) (g.key b) p k

theorem mem_bucket_redirect (hne : source ≠ target) :
    s ∈ ((g.redirect source target).index.get p).bucket k ↔
      ∃ k', s ∈ (g.index.get p).bucket k' ∧ g.redirected source target p k' = k := by
  rw [index_redirect, Index.mem_bucket_rekey]
  simp only [Index.mem_bucket_move _ hne]
  constructor
  · rintro ⟨-, ⟨k', hs, rfl⟩, hk⟩
    exact ⟨k', hs, hk⟩
  · rintro ⟨k', hs, hk⟩
    exact ⟨_, ⟨k', hs, rfl⟩, hk⟩

/-- **A merge takes each bucket to its destination.** -/
theorem mem_bucket_equate (h : g.equate a b = .ok (g', keep)) :
    s ∈ (g'.index.get p).bucket k ↔
      ∃ k', s ∈ (g.index.get p).bucket k' ∧ g.destination a b p k' = k := by
  unfold destination
  rcases equate_cases h with ⟨hk, rfl, -⟩ | ⟨hne, lose, rfl, hp, ⟨rfl, rfl⟩ | ⟨rfl, rfl⟩⟩
  · simp [hk]
  · rw [mem_bucket_redirect hne]
    simp [hne, hp, Ne.symm hne]
  · rw [mem_bucket_redirect (Ne.symm hne)]
    simp [hne, hp]

/-- Where every key is its own key, a redirection takes a bucket under the key
of what its old key stands for. -/
theorem Orderly.redirected_eq (hg : g.Orderly) (hs : g.canonical source = source)
    (ht : g.canonical target = target) (hne : source ≠ target)
    (hset : (g.redirect source target).Settled) (hb : s ∈ (g.index.get p).bucket k) :
    g.redirected source target p k =
      (g.redirect source target).key ((g.redirect source target).canonical k) := by
  have hr : Redirections.Recorded ((source, target) :: g.redirections) :=
    ⟨hs, ht, hne, hg.recorded⟩
  have hmoved : s ∈ ((g.index.get p).move source target).bucket
      ((g.redirect source target).canonical k) := by
    rw [hg.canonical_redirect hb]
    exact (Index.mem_bucket_move _ hne).2 ⟨_, hb, rfl⟩
  rw [redirected, ← hg.canonical_redirect hb]
  by_cases hc : ((g.redirect source target).canonical k).isAtomic
  · -- an atomic key stays where it is, and stands for itself
    have hkey : (g.redirect source target).key ((g.redirect source target).canonical k) =
        (g.redirect source target).canonical k := by
      rw [Graph.key, Redirections.key_of_isAtomic _ hc]
      exact Redirections.canonical_canonical hr k
    rw [hkey]
    exact Index.destination_of_key_eq hkey
  · refine Index.destination_of_key_key (Index.mem_of_mem_bucket hmoved) ?_ (hset _)
    simpa [Term.isAtomic_iff_isCollection] using hc

/-- **Where every key is its own key, a merge takes a bucket under the key of
what its old key stands for.** -/
theorem Orderly.destination_eq (hg : g.Orderly) (h : g.equate a b = .ok (g', keep))
    (hset : g'.Settled) (hb : s ∈ (g.index.get p).bucket (g.key t)) :
    g.destination a b p (g.key t) = g'.key (g'.canonical (g.key t)) := by
  have hkey : ∀ t, g.canonical (g.key t) = g.key t :=
    Redirections.canonical_key hg.recorded
  unfold destination
  rcases equate_cases h with ⟨hk, rfl, -⟩ | ⟨hne, lose, rfl, hp, ⟨rfl, rfl⟩ | ⟨rfl, rfl⟩⟩
  · rw [if_pos hk, hkey, hset]
  · rw [if_neg hne, hp, decide_eq_false hne.symm, if_neg Bool.false_ne_true,
      hg.redirected_eq (hkey a) (hkey b) hne hset hb]
  · rw [if_neg hne, hp, decide_eq_true rfl, if_pos rfl,
      hg.redirected_eq (hkey b) (hkey a) (Ne.symm hne) hset hb]

/-! ## Stores in which no collection was merged -/

/-- A merge only ever adds redirections. -/
theorem atomic_of_equate (h : g.equate a b = .ok (g', keep)) (ha : g'.redirections.Atomic) :
    g.redirections.Atomic := by
  rcases equate_cases h with ⟨-, rfl, -⟩ | ⟨-, lose, rfl, -⟩
  · exact ha
  · exact (Redirections.atomic_cons.1 ha).2

/-- Every key is then its own key. -/
theorem Orderly.settled (hg : g.Orderly) (ha : g.redirections.Atomic) : g.Settled :=
  fun t => ha.key_key hg.recorded t

/-- **The bucket of a term goes where its key goes**, as long as no collection
was merged. -/
theorem Orderly.destination_key (hg : g.Orderly) (h : g.equate a b = .ok (g', keep))
    (ha : g'.redirections.Atomic) (hb : s ∈ (g.index.get p).bucket (g.key t)) :
    g.destination a b p (g.key t) = g'.key t := by
  have hg' : g'.Orderly := hg.equate h
  rw [hg.destination_eq h (hg'.settled ha) hb]
  change g'.redirections.key (g'.redirections.canonical (g.key t)) = g'.redirections.key t
  rw [ha.key_canonical hg'.recorded]
  rcases equate_cases h with ⟨-, rfl, -⟩ | ⟨-, lose, rfl, -⟩
  · exact ha.key_key hg.recorded t
  · exact Redirections.Atomic.key_cons_key hg.recorded ha t

/-- **Where no collection was merged, every statement is filed under the key of
its term.** -/
theorem Reachable.key_term_of_mem_bucket (h : g.Reachable) (ha : g.redirections.Atomic)
    (hb : s ∈ (g.index.get p).bucket k) : g.key (s.term p) = k := by
  induction h generalizing k with
  | empty => simp [index_empty] at hb
  | @add g s' hg ih =>
    rw [redirections_add] at ha
    by_cases hs : s' ∈ g.statements
    · rw [add_of_mem hs] at hb ⊢
      exact ih ha hb
    · rw [index_add hs, Index.bucket_file] at hb
      have hkey : ∀ t, (g.add s').key t = g.key t := fun t => by
        rw [Graph.key, redirections_add, Graph.key]
      rw [hkey]
      split at hb
      · rename_i hk
        rcases Array.mem_push.1 hb with hb | rfl
        · exact (ih ha hb).trans hk
        · exact hk
      · exact ih ha hb
  | @equate g g' a b keep hg he ih =>
    obtain ⟨k', hb', rfl⟩ := (mem_bucket_equate he).1 hb
    have hk' : g.key (s.term p) = k' := ih (atomic_of_equate he ha) hb'
    subst hk'
    exact (hg.orderly.destination_key he ha hb').symm

end Graph

end TripleQuery
