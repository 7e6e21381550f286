import TripleQuery.Graph.Merge
import TripleQuery.Proofs.Merging.Redirections
import TripleQuery.Proofs.Tally
import Mathlib.Algebra.Order.Group.Multiset
import Mathlib.Data.Multiset.UnionInter
/-!
# Filing — every statement in one bucket

An index holds statements in buckets (`Index.filed`). Filing adds one
(`filed_file`); moving buckets neither loses nor duplicates any, however many
move and in whatever order (`filed_move`, `filed_moveAll`). Where the statements
of a bucket end up is `Index.follow` (`mem_bucket_moveAll`), and when all stale
collection keys are brought up to date `Index.destination` (`mem_bucket_rekey`).

A store that came about by adding statements and merging terms
(`Graph.Reachable`) is `Orderly`: its redirections were made between terms that
stood for themselves, so does every key in use, and each index files every
statement of the store exactly once.
-/

namespace TripleQuery

namespace Index

variable {ix : Index} {rs : Redirections} {source target k k' : Term} {s : Statement}

/-! ## What an index holds -/

/-- All statements of an index, as often as they are filed. -/
def filed (ix : Index) : Multiset Statement :=
  tally ix fun _ b => (b.toList : Multiset Statement)

@[simp] theorem filed_empty : filed ∅ = 0 := tally_empty _

/-- The statements of one bucket are filed beside those of all others. -/
theorem filed_eq_bucket_add (ix : Index) (k : Term) :
    ix.filed = ((ix.bucket k).toList : Multiset Statement) + filed (ix.erase k) := by
  cases h : ix[k]? with
  | none =>
    have hk : ix.erase k = ix := by
      ext k' : 1
      rw [Std.ExtTreeMap.getElem?_erase]
      by_cases hk : k = k'
      · subst hk; simp [h]
      · simp [hk]
    simp [bucket, h, hk]
  | some b =>
    rw [filed, tally_erase h]
    simp [bucket, h, filed]

/-- Writing a bucket replaces it. -/
theorem filed_insert (ix : Index) (k : Term) (b : Array Statement) :
    filed (ix.insert k b) = (b.toList : Multiset Statement) + filed (ix.erase k) :=
  tally_write ..

/-- **Filing adds one statement.** -/
theorem filed_file (ix : Index) (k : Term) (s : Statement) :
    (ix.file k s).filed = s ::ₘ ix.filed := by
  rw [file, filed_insert, filed_eq_bucket_add ix k, Array.toList_push, ← Multiset.coe_add,
    Multiset.coe_singleton, add_right_comm, add_comm, Multiset.singleton_add]

/-- **Moving a bucket keeps what is filed.** -/
theorem filed_move (ix : Index) (source target : Term) :
    (ix.move source target).filed = ix.filed := by
  unfold move
  cases hs : ix[source]? with
  | none => rfl
  | some moved =>
    have hb : ix.bucket source = moved := by simp [bucket, hs]
    dsimp only
    rw [filed_insert, filed_eq_bucket_add ix source, hb,
      filed_eq_bucket_add (ix.erase source) target, Array.toList_append, ← Multiset.coe_add]
    ac_rfl

/-- The buckets of some keys moved one after the other, each under the present
key of its key. -/
def moveAll (ix : Index) (rs : Redirections) (ks : List Term) : Index :=
  ks.foldl (fun acc k => acc.move k (rs.key k)) ix

/-- **Moving buckets keeps what is filed**, whichever they are and in whatever
order they move. -/
theorem filed_moveAll (ix : Index) (rs : Redirections) (ks : List Term) :
    (ix.moveAll rs ks).filed = ix.filed := by
  unfold moveAll
  induction ks generalizing ix with
  | nil => rfl
  | cons k ks ih => rw [List.foldl_cons, ih, filed_move]

/-- **An index that files nothing twice has every statement in one bucket.** -/
theorem bucket_unique (h : ix.filed.Nodup) (hk : s ∈ ix.bucket k) (hk' : s ∈ ix.bucket k') :
    k = k' := by
  by_contra hne
  have hrest : s ∈ (Index.bucket (ix.erase k) k') := by
    simpa [bucket, Std.ExtTreeMap.getElem?_erase, hne] using hk'
  rw [filed_eq_bucket_add ix k, filed_eq_bucket_add (ix.erase k) k', Multiset.nodup_add] at h
  exact Multiset.disjoint_left.1 h.2.2 (by simpa using hk) (by simp [hrest])

/-- What a bucket holds is filed. -/
theorem mem_filed_of_mem_bucket (h : s ∈ ix.bucket k) : s ∈ ix.filed := by
  rw [filed_eq_bucket_add ix k]
  simp [h]

/-- What is filed is in some bucket. -/
theorem exists_bucket_of_mem_filed (h : s ∈ ix.filed) : ∃ k, s ∈ ix.bucket k := by
  obtain ⟨k, b, hb, hs⟩ := exists_mem_of_mem_tally h
  refine ⟨k, ?_⟩
  simpa [bucket, hb] using hs

/-! ## Where a bucket goes -/

/-- A stale key is a collection in use that is not its own key. -/
theorem mem_staleKeys : k ∈ ix.staleKeys rs ↔ k ∈ ix ∧ k.isCollection ∧ rs.key k ≠ k := by
  simp [staleKeys, Std.ExtTreeMap.mem_keys]

/-- A key under which something is filed is in use. -/
theorem mem_of_mem_bucket (h : s ∈ ix.bucket k) : k ∈ ix := by
  by_contra hk
  simp [bucket, Std.ExtTreeMap.getElem?_eq_none hk] at h

/-- The key under which the statements of a bucket are once the buckets of some
keys moved, one after the other. -/
def follow (rs : Redirections) (ks : List Term) (k : Term) : Term :=
  ks.foldl (fun k' stale => if k' = stale then rs.key stale else k') k

/-- The key under which the statements of a bucket are once the stale keys were
brought up to date, one after the other. -/
def destination (ix : Index) (rs : Redirections) (k : Term) : Term :=
  (ix.staleKeys rs).foldl (fun k' stale => if k' = stale then rs.key stale else k') k

/-- A moved bucket takes its statements along. -/
theorem mem_bucket_move (ix : Index) (h : source ≠ target) :
    s ∈ (ix.move source target).bucket k' ↔
      ∃ k, s ∈ ix.bucket k ∧ (if k = source then target else k) = k' := by
  rw [bucket_move ix h]
  constructor
  · intro hs
    split at hs
    · simp at hs
    · rename_i hk
      split at hs
      · rename_i hkt
        rcases Array.mem_append.1 hs with ht | hsrc
        · exact ⟨target, ht, by rw [if_neg h.symm, hkt]⟩
        · exact ⟨source, hsrc, by rw [if_pos rfl, hkt]⟩
      · exact ⟨k', hs, by rw [if_neg hk]⟩
  · rintro ⟨k, hs, rfl⟩
    by_cases hk : k = source
    · rw [if_pos hk, if_neg h.symm, if_pos rfl]
      exact Array.mem_append.2 (.inr (hk ▸ hs))
    · rw [if_neg hk, if_neg hk]
      split
      · rename_i hkt
        exact Array.mem_append.2 (.inl (hkt ▸ hs))
      · exact hs

/-- **The statements of a bucket follow the moves.** -/
theorem mem_bucket_moveAll (ix : Index) {ks : List Term} (h : ∀ k ∈ ks, k ≠ rs.key k) :
    s ∈ (ix.moveAll rs ks).bucket k' ↔ ∃ k, s ∈ ix.bucket k ∧ follow rs ks k = k' := by
  unfold moveAll follow
  -- the moves that are left carry on from wherever a bucket is by now
  induction ks generalizing ix with
  | nil => simp
  | cons k ks ih =>
    have hmove : ∀ k' s, s ∈ (ix.move k (rs.key k)).bucket k' ↔
        ∃ k₀, s ∈ ix.bucket k₀ ∧ (if k₀ = k then rs.key k else k₀) = k' :=
      fun _ _ => mem_bucket_move ix (h k List.mem_cons_self)
    have hrest := ih (ix.move k (rs.key k)) fun k₀ hk₀ => h k₀ (List.mem_cons_of_mem _ hk₀)
    simp only [List.foldl_cons, hrest, hmove]
    constructor
    · rintro ⟨-, ⟨k₀, hs, rfl⟩, hk⟩
      exact ⟨k₀, hs, hk⟩
    · rintro ⟨k₀, hs, hk⟩
      exact ⟨_, ⟨k₀, hs, rfl⟩, hk⟩

/-- A stale key is not the key it moves to. -/
theorem ne_key_of_mem_staleKeys (h : k ∈ ix.staleKeys rs) : k ≠ rs.key k :=
  (mem_staleKeys.1 h).2.2.symm

/-- **The statements of a bucket go where its key's destination is.** -/
theorem mem_bucket_rekey (ix : Index) (rs : Redirections) :
    s ∈ (ix.rekey rs).bucket k' ↔ ∃ k, s ∈ ix.bucket k ∧ ix.destination rs k = k' :=
  mem_bucket_moveAll ix fun _ hk => ne_key_of_mem_staleKeys hk

/-- A key that no move concerns stays where it is. -/
theorem foldl_destination_of_not_mem {ks : List Term} (h : k ∉ ks) :
    ks.foldl (fun k' stale => if k' = stale then rs.key stale else k') k = k := by
  induction ks with
  | nil => rfl
  | cons k' ks ih =>
    simp only [List.mem_cons, not_or] at h
    rw [List.foldl_cons, if_neg h.1, ih h.2]

/-- A key that is its own key keeps its bucket. -/
theorem destination_of_key_eq (h : rs.key k = k) : ix.destination rs k = k :=
  foldl_destination_of_not_mem fun hk => (mem_staleKeys.1 hk).2.2 h

/-- **Where one move is enough, a bucket goes under the key of its key.** -/
theorem destination_of_key_key (hk : k ∈ ix) (hc : k.isCollection)
    (h : rs.key (rs.key k) = rs.key k) : ix.destination rs k = rs.key k := by
  by_cases hkk : rs.key k = k
  · rw [destination_of_key_eq hkk, hkk]
  · have hstale : k ∈ ix.staleKeys rs := mem_staleKeys.2 ⟨hk, hc, hkk⟩
    have hfresh : rs.key k ∉ ix.staleKeys rs := fun hf => (mem_staleKeys.1 hf).2.2 h
    unfold destination
    generalize ix.staleKeys rs = ks at hstale hfresh
    induction ks with
    | nil => simp at hstale
    | cons k' ks ih =>
      simp only [List.mem_cons, not_or] at hfresh
      rw [List.foldl_cons]
      by_cases hkk' : k = k'
      · rw [if_pos hkk', ← hkk', foldl_destination_of_not_mem hfresh.2]
      · rw [if_neg hkk']
        exact ih ((List.mem_cons.1 hstale).resolve_left hkk') hfresh.2

end Index

end TripleQuery
