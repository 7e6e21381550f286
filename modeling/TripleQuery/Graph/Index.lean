import TripleQuery.Statement
import TripleQuery.Graph.Redirections
import Std.Data.ExtTreeMap
/-!
# Indices

An index files statements in buckets under the key of one of their positions. Filing puts a
statement at the end of its bucket (`bucket_file`); moving a bucket puts its statements behind those
already under the other key (`bucket_move`), and leaves every other bucket alone.
-/

namespace TripleQuery

/-- The statements filed under each key, in the order in which they got there. -/
abbrev Index := Std.ExtTreeMap Term (Array Statement)

namespace Index

/-- The statements filed under a key. -/
def bucket (ix : Index) (k : Term) : Array Statement :=
  ix[k]?.getD #[]

/-- File a statement under a key. -/
def file (ix : Index) (k : Term) (s : Statement) : Index :=
  ix.insert k ((ix.bucket k).push s)

/-- Move what is filed under one key to the end of another bucket. A key under which nothing was
ever filed leaves no bucket behind. -/
def move (ix : Index) (source target : Term) : Index :=
  match ix[source]? with
  | none => ix
  | some moved =>
    let rest : Index := ix.erase source
    rest.insert target (rest.bucket target ++ moved)

/-- The collection keys that are no longer the key of what they denote. -/
def staleKeys (ix : Index) (rs : Redirections) : List Term :=
  ix.keys.filter fun k => k.isCollection && rs.key k ≠ k

/-- Bring the buckets of collections under their present keys. -/
def rekey (ix : Index) (rs : Redirections) : Index :=
  (ix.staleKeys rs).foldl (fun acc k => acc.move k (rs.key k)) ix

@[simp] theorem bucket_empty (k : Term) : bucket ∅ k = #[] := by
  simp [bucket]

/-- **A statement goes to the end of its bucket and to no other.** -/
theorem bucket_file (ix : Index) (k k' : Term) (s : Statement) :
    (ix.file k s).bucket k' = if k = k' then (ix.bucket k).push s else ix.bucket k' := by
  by_cases h : k = k' <;>
    simp [bucket, file, Std.ExtTreeMap.getElem?_insert, h]

/-- **A moved bucket goes behind the one under its new key.** -/
theorem bucket_move (ix : Index) {source target : Term} (h : source ≠ target) (k : Term) :
    (ix.move source target).bucket k =
      if k = source then #[]
      else if k = target then ix.bucket target ++ ix.bucket source
      else ix.bucket k := by
  unfold move
  cases hs : ix[source]? with
  | none =>
    have hb : ix.bucket source = #[] := by simp [bucket, hs]
    simp only
    split
    · simp_all
    · split <;> simp_all
  | some moved =>
    have hb : ix.bucket source = moved := by simp [bucket, hs]
    simp only [bucket, Std.ExtTreeMap.getElem?_insert, Std.ExtTreeMap.getElem?_erase,
      Std.LawfulEqCmp.compare_eq_iff_eq]
    by_cases hk : k = source
    · subst hk
      simp [h.symm]
    · by_cases hk' : k = target
      · subst hk'
        simp [h, h.symm, hs]
      · simp [hk, Ne.symm hk, hk', Ne.symm hk']

end Index

end TripleQuery
